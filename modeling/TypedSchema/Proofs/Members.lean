import Mathlib.Data.List.Induction
import Mathlib.Data.Multiset.MapFold
import TypedSchema.Members

/-!
# What ordered members and lists without repetition hold

`insertMember` changes what one name maps to and keeps the names distinct; members that map each
name to related values correspond one to one, whatever their order (`rel_of_lookup`).

`firstOccurrences` keeps every value up to `==` and no two that are equal, each at the first place
where its class appears (`firstOccurrences_filter`).  Two such lists that hold the same values up to
`==` correspond one to one as well (`rel_of_contains_iff`).  Where values repeat, counting them
decides the correspondence (`rel_iff_count`).
-/

namespace TypedSchema

/-! ## Named entries -/

section
variable {α : Type}

lemma lookup_member (name k : String) (v : α) (rest : List (String × α)) :
    ((k, v) :: rest).lookup name = if name = k then some v else rest.lookup name := by
  by_cases h : name = k
  · simp [h]
  · simp [List.lookup_cons, h, beq_false_of_ne h]

lemma lookup_insertMember (name other : String) (value : α) (members : List (String × α)) :
    (insertMember name value members).lookup other =
      if other = name then some value else members.lookup other := by
  induction members with
  | nil => rw [insertMember, lookup_member]
  | cons member rest ih =>
    obtain ⟨k, v⟩ := member
    by_cases hk : k = name
    · rw [insertMember, if_pos hk, lookup_member, lookup_member, hk]
      split <;> rfl
    · rw [insertMember, if_neg hk, lookup_member, lookup_member, ih]
      by_cases hother : other = k
      · rw [if_pos hother, if_neg fun h => hk (hother.symm.trans h)]
        rw [if_pos hother]
      · rw [if_neg hother, if_neg hother]

/-- A new name goes to the end. -/
lemma insertMember_of_notMem {name : String} {value : α} {members : List (String × α)}
    (h : name ∉ members.map Prod.fst) :
    insertMember name value members = members ++ [(name, value)] := by
  induction members with
  | nil => rfl
  | cons member rest ih =>
    rw [List.map_cons, List.mem_cons, not_or] at h
    rw [insertMember, if_neg (Ne.symm h.1), ih h.2, List.cons_append]

lemma mem_of_mem_insertMember {name : String} {value : α} {members : List (String × α)}
    {entry : String × α} (h : entry ∈ insertMember name value members) :
    entry = (name, value) ∨ entry ∈ members := by
  induction members with
  | nil => exact .inl (List.mem_singleton.1 h)
  | cons member rest ih =>
    obtain ⟨k, v⟩ := member
    rw [insertMember] at h
    split at h
    · rename_i hk
      rcases List.mem_cons.1 h with rfl | h
      · exact .inl (hk ▸ rfl)
      · exact .inr (List.mem_cons_of_mem _ h)
    · rcases List.mem_cons.1 h with rfl | h
      · exact .inr List.mem_cons_self
      · exact (ih h).imp_right (List.mem_cons_of_mem _)

lemma nodup_insertMember {name : String} {value : α} {members : List (String × α)}
    (h : (members.map Prod.fst).Nodup) :
    ((insertMember name value members).map Prod.fst).Nodup := by
  rw [map_fst_insertMember]
  split
  · exact h
  · rename_i hname
    exact List.nodup_append.2 ⟨h, List.nodup_singleton name,
      fun a ha b hb => by rintro rfl; exact hname (List.mem_singleton.1 hb ▸ ha)⟩

lemma lookup_eq_none {name : String} {members : List (String × α)} :
    members.lookup name = none ↔ name ∉ members.map Prod.fst := by
  induction members with
  | nil => simp
  | cons member rest ih =>
    obtain ⟨k, v⟩ := member
    rw [lookup_member, List.map_cons, List.mem_cons, not_or, ← ih]
    split <;> simp_all

lemma exists_split_of_lookup {name : String} {value : α} {members : List (String × α)}
    (h : members.lookup name = some value) :
    ∃ before after, members = before ++ (name, value) :: after := by
  refine List.append_of_mem ?_
  induction members with
  | nil => cases h
  | cons member rest ih =>
    obtain ⟨k, v⟩ := member
    rw [lookup_member] at h
    split at h
    · rename_i hk
      cases h
      exact hk ▸ List.mem_cons_self
    · exact List.mem_cons_of_mem _ (ih h)

lemma mem_of_lookup {name : String} {value : α} {members : List (String × α)}
    (h : members.lookup name = some value) : (name, value) ∈ members := by
  obtain ⟨before, after, rfl⟩ := exists_split_of_lookup h
  exact List.mem_append_right before List.mem_cons_self

/-- A member with a distinct name is what its name maps to. -/
lemma lookup_of_mem {members : List (String × α)} (hdistinct : (members.map Prod.fst).Nodup)
    {member : String × α} (h : member ∈ members) : members.lookup member.1 = some member.2 := by
  induction members with
  | nil => exact absurd h List.not_mem_nil
  | cons first rest ih =>
    obtain ⟨hfresh, hrest⟩ := List.nodup_cons.1 hdistinct
    obtain ⟨k, v⟩ := first
    rw [lookup_member]
    rcases List.mem_cons.1 h with rfl | h
    · exact if_pos rfl
    · have hmem : member.1 ∈ rest.map Prod.fst := List.mem_map_of_mem h
      have hne : member.1 ≠ k := fun heq => hfresh (heq ▸ hmem)
      rw [if_neg hne]
      exact ih hrest h

/-- Leaving out a member with a distinct name changes what its own name maps to, and nothing
else. -/
lemma lookup_split {name : String} {value : α} {before after : List (String × α)}
    (h : ((before ++ (name, value) :: after).map Prod.fst).Nodup) (other : String) :
    (before ++ after).lookup other =
      if other = name then none else (before ++ (name, value) :: after).lookup other := by
  have hperm : (before ++ (name, value) :: after).Perm ((name, value) :: (before ++ after)) :=
    List.perm_middle
  have hnodup := (hperm.map Prod.fst).nodup_iff.1 h
  split
  · rename_i hother
    rw [hother, lookup_eq_none]
    exact (List.nodup_cons.1 hnodup).1
  · rename_i hother
    rw [List.lookup_append, List.lookup_append, lookup_member, if_neg hother]

end

/-- Two entries of one name with related values. -/
def SameName {α β : Type} (r : α → β → Prop) (x : String × α) (y : String × β) : Prop :=
  x.1 = y.1 ∧ r x.2 y.2

/-- What a name maps to comes from what it maps to in a list of corresponding entries. -/
lemma exists_lookup_of_forall₂ {α β : Type} {r : α → β → Prop} {xs : List (String × α)}
    {ys : List (String × β)} (h : List.Forall₂ (SameName r) xs ys) {name : String} {b : β}
    (hb : ys.lookup name = some b) : ∃ a, xs.lookup name = some a ∧ r a b := by
  induction h with
  | nil => cases hb
  | @cons x y _ _ hxy _ ih =>
    obtain ⟨key, a⟩ := x
    obtain ⟨key', b'⟩ := y
    obtain ⟨rfl, hab⟩ := hxy
    rw [lookup_member] at hb ⊢
    split at hb
    · cases hb
      rename_i hname
      exact ⟨a, if_pos hname, hab⟩
    · rename_i hname
      rw [if_neg hname]
      exact ih hb

/-- Members with distinct names correspond one to one when each name maps to related values. -/
theorem rel_of_lookup {α β : Type} {r : α → β → Prop} {xs : List (String × α)}
    {ys : List (String × β)} (hxs : (xs.map Prod.fst).Nodup) (hys : (ys.map Prod.fst).Nodup)
    (h : ∀ name, Option.Rel r (xs.lookup name) (ys.lookup name)) :
    Multiset.Rel (SameName r) (xs : Multiset (String × α)) (ys : Multiset (String × β)) := by
  induction xs generalizing ys with
  | nil =>
    cases ys with
    | nil => exact Multiset.Rel.zero
    | cons y ys =>
      have hy := h y.1
      rw [lookup_member, if_pos rfl] at hy
      cases hy
  | cons x xs ih =>
    obtain ⟨name, a⟩ := x
    have hname := h name
    rw [lookup_member, if_pos rfl] at hname
    obtain ⟨b, hab, hb⟩ : ∃ b, r a b ∧ ys.lookup name = some b := by
      cases hlookup : ys.lookup name with
      | none => rw [hlookup] at hname; cases hname
      | some b => rw [hlookup] at hname; cases hname with | some hab => exact ⟨b, hab, rfl⟩
    obtain ⟨before, after, rfl⟩ := exists_split_of_lookup hb
    have hperm : (before ++ (name, b) :: after).Perm ((name, b) :: (before ++ after)) :=
      List.perm_middle
    have hys' := (List.nodup_cons.1 ((hperm.map Prod.fst).nodup_iff.1 hys)).2
    have hxs' := List.nodup_cons.1 hxs
    rw [Multiset.coe_eq_coe.2 hperm, ← Multiset.cons_coe, ← Multiset.cons_coe]
    refine Multiset.Rel.cons ⟨rfl, hab⟩ (ih hxs'.2 hys' fun other => ?_)
    have hother := h other
    rw [lookup_member] at hother
    rw [lookup_split hys]
    split at hother
    · rename_i heq
      subst heq
      rw [if_pos rfl, lookup_eq_none.2 hxs'.1]
      exact .none
    · rename_i hne
      rwa [if_neg hne]

/-! ## Lists without repetition -/

/-- A list that is neither empty nor a single item has several. -/
lemma two_le_length {α : Type} {xs : List α} (hempty : xs ≠ []) (hsingle : ∀ x, xs ≠ [x]) :
    2 ≤ xs.length := by
  obtain _ | ⟨first, _ | ⟨second, rest⟩⟩ := xs
  · exact (hempty rfl).elim
  · exact (hsingle first rfl).elim
  · exact Nat.le_add_left 2 rest.length

section
variable {α : Type} [BEq α]

lemma foldl_appendNew_subset {seen xs : List α} {x : α} (h : x ∈ xs.foldl appendNew seen) :
    x ∈ seen ∨ x ∈ xs := by
  induction xs generalizing seen with
  | nil => exact .inl h
  | cons y ys ih =>
    rcases ih h with hseen | hys
    · rw [appendNew] at hseen
      split at hseen
      · exact .inl hseen
      · rcases List.mem_append.1 hseen with hseen | hy
        · exact .inl hseen
        · have hxy : x = y := List.mem_singleton.1 hy
          rw [hxy]
          exact .inr List.mem_cons_self
    · exact .inr (List.mem_cons_of_mem y hys)

lemma mem_of_mem_firstOccurrences {xs : List α} {x : α} (h : x ∈ firstOccurrences xs) : x ∈ xs :=
  (foldl_appendNew_subset h).resolve_left List.not_mem_nil

lemma subset_foldl_appendNew {seen xs : List α} : seen ⊆ xs.foldl appendNew seen := by
  induction xs generalizing seen with
  | nil => exact fun _ h => h
  | cons y ys ih =>
    intro x hx
    refine ih ?_
    rw [appendNew]
    split
    · exact hx
    · exact List.mem_append_left _ hx

/-- What is given is kept, or an earlier value equal to it is. -/
lemma exists_mem_foldl_appendNew (seen : List α) {xs : List α} {x : α} (h : x ∈ xs) :
    x ∈ xs.foldl appendNew seen ∨ ∃ y ∈ xs.foldl appendNew seen, (x == y) = true := by
  induction xs generalizing seen with
  | nil => exact absurd h List.not_mem_nil
  | cons y ys ih =>
    rcases List.mem_cons.1 h with rfl | hys
    · by_cases hseen : seen.contains x = true
      · obtain ⟨z, hz, hxz⟩ := List.contains_iff_exists_mem_beq.1 hseen
        have happ : appendNew seen x = seen := if_pos hseen
        rw [List.foldl_cons, happ]
        exact .inr ⟨z, subset_foldl_appendNew hz, hxz⟩
      · have happ : appendNew seen x = seen ++ [x] := if_neg hseen
        rw [List.foldl_cons, happ]
        have hmem : x ∈ seen ++ [x] := List.mem_append_right _ (List.mem_singleton_self x)
        exact .inl (subset_foldl_appendNew hmem)
    · exact ih (appendNew seen y) hys

lemma foldl_appendNew_of_contains {seen xs : List α} (h : ∀ x ∈ xs, seen.contains x = true) :
    xs.foldl appendNew seen = seen := by
  induction xs with
  | nil => rfl
  | cons x xs ih =>
    obtain ⟨hx, hxs⟩ := List.forall_mem_cons.1 h
    rw [List.foldl_cons, appendNew, if_pos hx, ih hxs]

lemma firstOccurrences_concat (xs : List α) (x : α) :
    firstOccurrences (xs ++ [x]) = appendNew (firstOccurrences xs) x := by
  rw [firstOccurrences, List.foldl_append]
  rfl

/-- The values that satisfy `p` and are equal to no earlier value of the list, in order. -/
def firstsWhere (p : α → Bool) (xs : List α) : List α :=
  (xs.zipIdx.filter fun entry => p entry.1 && !(xs.take entry.2).contains entry.1).map Prod.fst

lemma firstsWhere_sublist (p : α → Bool) (xs : List α) : (firstsWhere p xs).Sublist xs := by
  have h : (firstsWhere p xs).Sublist (xs.zipIdx.map Prod.fst) := List.filter_sublist.map Prod.fst
  rwa [List.zipIdx_map_fst] at h

lemma firstsWhere_concat (p : α → Bool) (xs : List α) (x : α) :
    firstsWhere p (xs ++ [x]) =
      firstsWhere p xs ++ if p x && !xs.contains x then [x] else [] := by
  -- what is behind a value has no say in whether an earlier one is equal to it
  have hbefore : ∀ entry ∈ xs.zipIdx, (xs ++ [x]).take entry.2 = xs.take entry.2 := by
    intro entry hentry
    apply List.take_append_of_le_length
    have hlt := List.snd_lt_of_mem_zipIdx hentry
    omega
  have hlast : (xs ++ [x]).take xs.length = xs := List.take_left
  rw [firstsWhere, List.zipIdx_append, List.filter_append, List.map_append, firstsWhere]
  congr 2
  · exact List.filter_congr fun entry hentry => by rw [hbefore entry hentry]
  · rw [List.zipIdx_singleton, List.filter_singleton, Nat.zero_add, hlast]
    cases p x && !xs.contains x <;> rfl

/-- Distinct values are kept as they are. -/
lemma firstOccurrences_of_nodup [LawfulBEq α] {xs : List α} (h : xs.Nodup) :
    firstOccurrences xs = xs := by
  have hfold : ∀ seen : List α, (seen ++ xs).Nodup → xs.foldl appendNew seen = seen ++ xs := by
    clear h
    induction xs with
    | nil => exact fun seen _ => (List.append_nil seen).symm
    | cons x xs ih =>
      intro seen hnodup
      have hx : ¬seen.contains x = true := by
        rw [List.contains_iff_mem]
        exact fun hmem => (List.nodup_append.1 hnodup).2.2 x hmem x List.mem_cons_self rfl
      rw [List.foldl_cons, appendNew, if_neg hx, ih _ (by simpa using hnodup)]
      simp
  exact hfold [] h

lemma pairwise_foldl_appendNew [EquivBEq α] {seen xs : List α}
    (h : seen.Pairwise fun a b => (a == b) = false) :
    (xs.foldl appendNew seen).Pairwise fun a b => (a == b) = false := by
  induction xs generalizing seen with
  | nil => exact h
  | cons y ys ih =>
    refine ih ?_
    rw [appendNew]
    split
    · exact h
    · rename_i hy
      refine List.pairwise_append.2 ⟨h, List.pairwise_singleton _ _, fun a ha b hb => ?_⟩
      rw [List.mem_singleton.1 hb, BEq.comm, Bool.eq_false_iff]
      exact fun hya => hy (List.contains_iff_exists_mem_beq.2 ⟨a, ha, hya⟩)

variable [EquivBEq α]

/-- No two values of a list without repetition are equal. -/
theorem pairwise_firstOccurrences (xs : List α) :
    (firstOccurrences xs).Pairwise fun a b => (a == b) = false :=
  pairwise_foldl_appendNew List.Pairwise.nil

/-- What is given is kept, up to `==`. -/
lemma exists_mem_firstOccurrences {xs : List α} {x : α} (h : x ∈ xs) :
    ∃ y ∈ firstOccurrences xs, (x == y) = true := by
  rcases exists_mem_foldl_appendNew [] h with hmem | hmem
  · exact ⟨x, hmem, BEq.rfl⟩
  · exact hmem

lemma firstOccurrences_eq_nil {xs : List α} : firstOccurrences xs = [] ↔ xs = [] := by
  constructor
  · intro h
    rw [List.eq_nil_iff_forall_not_mem]
    intro x hx
    obtain ⟨y, hy, -⟩ := exists_mem_firstOccurrences hx
    rw [h] at hy
    exact List.not_mem_nil hy
  · rintro rfl
    rfl

lemma contains_appendNew (seen : List α) (y x : α) :
    (appendNew seen y).contains x = (seen.contains x || x == y) := by
  rw [appendNew]
  by_cases hy : seen.contains y = true
  · rw [if_pos hy]
    cases hxy : x == y with
    | false => rw [Bool.or_false]
    | true => rw [List.contains_congr hxy, hy, Bool.or_true]
  · rw [if_neg hy, List.contains_eq_any_beq, List.any_append, ← List.contains_eq_any_beq]
    simp

lemma contains_foldl_appendNew (seen xs : List α) (x : α) :
    (xs.foldl appendNew seen).contains x = (seen.contains x || xs.contains x) := by
  induction xs generalizing seen with
  | nil => simp
  | cons y ys ih =>
    rw [List.foldl_cons, ih, contains_appendNew, List.contains_cons, Bool.or_assoc]

/-- A list without repetition holds what the list holds. -/
@[simp] theorem contains_firstOccurrences (xs : List α) (x : α) :
    (firstOccurrences xs).contains x = xs.contains x := by
  rw [firstOccurrences, contains_foldl_appendNew]
  simp

/-- Values that are added one by one may be rid of their repetitions first. -/
lemma foldl_appendNew_firstOccurrences (seen xs : List α) :
    (firstOccurrences xs).foldl appendNew seen = xs.foldl appendNew seen := by
  induction xs using List.reverseRecOn with
  | nil => rfl
  | append_singleton xs x ih =>
    rw [firstOccurrences_concat, appendNew, List.foldl_append, List.foldl_cons, List.foldl_nil]
    by_cases hx : (firstOccurrences xs).contains x = true
    · have hseen : (xs.foldl appendNew seen).contains x = true := by
        rw [contains_firstOccurrences] at hx
        rw [contains_foldl_appendNew, hx, Bool.or_true]
      rw [if_pos hx, ih, appendNew, if_pos hseen]
    · rw [if_neg hx, List.foldl_append, ih]
      rfl

/-- Repetitions within the pieces of a list do not matter. -/
theorem firstOccurrences_flatMap (pieces : List (List α)) :
    firstOccurrences (pieces.flatMap firstOccurrences) = firstOccurrences pieces.flatten := by
  have hfold : ∀ seen : List α, (pieces.flatMap firstOccurrences).foldl appendNew seen =
      pieces.flatten.foldl appendNew seen := by
    induction pieces with
    | nil => exact fun _ => rfl
    | cons piece rest ih =>
      intro seen
      rw [List.flatMap_cons, List.flatten_cons, List.foldl_append, List.foldl_append, ih,
        foldl_appendNew_firstOccurrences]
  exact hfold []

/-- Of the values that satisfy `p`, those are kept that no earlier value is equal to. -/
theorem firstOccurrences_filter {p : α → Bool} (hp : ∀ x y, (x == y) = true → p x = p y)
    (xs : List α) : firstOccurrences (xs.filter p) = firstsWhere p xs := by
  induction xs using List.reverseRecOn with
  | nil => rfl
  | append_singleton xs x ih =>
    rw [firstsWhere_concat, ← ih, List.filter_append]
    cases hx : p x with
    | false => simp [hx]
    | true =>
      have hcontains : (xs.filter p).contains x = xs.contains x := by
        rw [Bool.eq_iff_iff, List.contains_iff_exists_mem_beq, List.contains_iff_exists_mem_beq]
        constructor
        · rintro ⟨y, hy, hxy⟩
          exact ⟨y, List.mem_of_mem_filter hy, hxy⟩
        · rintro ⟨y, hy, hxy⟩
          exact ⟨y, List.mem_filter.2 ⟨hy, hp x y hxy ▸ hx⟩, hxy⟩
      have hlast : [x].filter p = [x] := by simp [hx]
      rw [hlast, firstOccurrences_concat, appendNew, contains_firstOccurrences, hcontains]
      cases xs.contains x
      · rfl
      · exact (List.append_nil _).symm

lemma mem_firstOccurrences {α : Type} [BEq α] [LawfulBEq α] {xs : List α} {x : α} :
    x ∈ firstOccurrences xs ↔ x ∈ xs := by
  rw [← List.contains_iff_mem, contains_firstOccurrences, List.contains_iff_mem]

lemma nodup_firstOccurrences {α : Type} [BEq α] [LawfulBEq α] (xs : List α) :
    (firstOccurrences xs).Nodup :=
  (pairwise_firstOccurrences xs).imp fun hab => by simpa using hab

/-- Lists that hold the same values, each once, correspond one to one. -/
theorem rel_of_contains_iff {xs ys : List α} (hxs : xs.Pairwise fun a b => (a == b) = false)
    (hys : ys.Pairwise fun a b => (a == b) = false)
    (h : ∀ z, xs.contains z = true ↔ ys.contains z = true) :
    Multiset.Rel (fun a b : α => (a == b) = true) (xs : Multiset α) (ys : Multiset α) := by
  induction xs generalizing ys with
  | nil =>
    cases ys with
    | nil => exact Multiset.Rel.zero
    | cons y ys => simpa using (h y).2 (by simp)
  | cons x xs ih =>
    obtain ⟨y, hy, hxy⟩ := List.contains_iff_exists_mem_beq.1 ((h x).1 (by simp))
    obtain ⟨before, after, rfl⟩ := List.append_of_mem hy
    have hperm : (before ++ y :: after).Perm (y :: (before ++ after)) := List.perm_middle
    have hys' := (hperm.pairwise_iff fun hab => by rwa [BEq.comm]).1 hys
    rw [Multiset.coe_eq_coe.2 hperm, ← Multiset.cons_coe, ← Multiset.cons_coe]
    refine Multiset.Rel.cons hxy (ih (List.pairwise_cons.1 hxs).2 (List.pairwise_cons.1 hys').2 ?_)
    intro z
    have hz := h z
    simp only [List.contains_iff_exists_mem_beq, hperm.mem_iff, List.exists_mem_cons_iff] at hz ⊢
    constructor
    · rintro ⟨a, ha, hza⟩
      refine (hz.1 (.inr ⟨a, ha, hza⟩)).resolve_left fun hzy => ?_
      -- otherwise `a` would be equal to the head, through `z` and `y`
      have hxa : (x == a) = true := BEq.trans hxy (BEq.trans (BEq.symm hzy) hza)
      rw [(List.pairwise_cons.1 hxs).1 a ha] at hxa
      exact absurd hxa Bool.false_ne_true
    · rintro ⟨a, ha, hza⟩
      refine (hz.2 (.inr ⟨a, ha, hza⟩)).resolve_left fun hzx => ?_
      have hya : (y == a) = true := BEq.trans (BEq.symm hxy) (BEq.trans (BEq.symm hzx) hza)
      rw [(List.pairwise_cons.1 hys').1 a ha] at hya
      exact absurd hya Bool.false_ne_true

end

/-- The values of two lists correspond one to one, and corresponding ones are equal. -/
abbrev SameValues {α : Type} [BEq α] (xs ys : List α) : Prop :=
  Multiset.Rel (fun x y : α => (x == y) = true) (xs : Multiset α) (ys : Multiset α)

/-! ## Correspondence by counting -/

section
variable {α : Type} [BEq α] [EquivBEq α]

lemma SameValues.refl (xs : List α) : SameValues xs xs :=
  Multiset.rel_refl_of_refl_on fun _ _ => BEq.rfl

/-- Lists that correspond one to one hold as many values of each class. -/
lemma count_eq_of_rel {xs ys : List α}
    (h : Multiset.Rel (fun x y : α => (x == y) = true) (xs : Multiset α) (ys : Multiset α))
    (z : α) : xs.count z = ys.count z := by
  induction xs generalizing ys with
  | nil =>
    obtain rfl : ys = [] := (Multiset.coe_eq_zero ys).1 (Multiset.rel_zero_left.1 h)
    rfl
  | cons x xs ih =>
    rw [← Multiset.cons_coe, Multiset.rel_cons_left] at h
    obtain ⟨y, others, hxy, hrest, hys⟩ := h
    obtain ⟨rest, rfl⟩ := Quot.exists_rep others
    have hperm : ys.Perm (y :: rest) := Multiset.coe_eq_coe.1 hys
    rw [hperm.count_eq, List.count_cons, List.count_cons, ih hrest, BEq.congr_left hxy]

/-- Counting decides one-to-one correspondence, and it is enough to count the classes on the left:
with equal lengths nothing else has room on the right. -/
theorem rel_iff_count {xs ys : List α} :
    Multiset.Rel (fun x y : α => (x == y) = true) (xs : Multiset α) (ys : Multiset α) ↔
      xs.length = ys.length ∧ ∀ x ∈ xs, xs.count x = ys.count x := by
  refine ⟨fun h => ⟨Multiset.card_eq_card_of_rel h, fun x _ => count_eq_of_rel h x⟩, ?_⟩
  rintro ⟨hlength, hcount⟩
  induction xs generalizing ys with
  | nil =>
    rw [List.length_eq_zero_iff.1 hlength.symm]
    exact Multiset.Rel.zero
  | cons x xs ih =>
    have hpos : 0 < ys.count x := by
      rw [← hcount x List.mem_cons_self]
      exact List.countP_pos_iff.2 ⟨x, List.mem_cons_self, BEq.rfl⟩
    obtain ⟨y, hy, hyx⟩ := List.countP_pos_iff.1 hpos
    obtain ⟨before, after, rfl⟩ := List.append_of_mem hy
    have hperm : (before ++ y :: after).Perm (y :: (before ++ after)) := List.perm_middle
    rw [Multiset.coe_eq_coe.2 hperm, ← Multiset.cons_coe, ← Multiset.cons_coe]
    refine Multiset.Rel.cons (BEq.symm hyx) (ih ?_ fun z hz => ?_)
    · exact Nat.succ.inj (hlength.trans hperm.length_eq)
    · have hz := hcount z (List.mem_cons_of_mem x hz)
      rw [hperm.count_eq, List.count_cons, List.count_cons, BEq.congr_left hyx] at hz
      exact Nat.add_right_cancel hz

end

end TypedSchema
