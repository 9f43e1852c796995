import Mathlib.Data.List.Induction
import Mathlib.Data.List.Perm.Subperm
import TypedSchema.Proofs.Members
import TypedSchema.Proofs.Outcome
import TypedSchema.Proofs.Schema.Equality
import TypedSchema.Schema.Merge

/-!
# What an intersection of schemas offers

`Schema.intersection` looks one level deep: it compares the shapes that its two operands offer.  Its
result offers the common shapes again, so that folding it over a list collects the shapes offered by
all members, as long as a single common shape is not itself taken apart by the next step.

`Schema.Meets ds r` says that `r` is made of the shapes that all of `ds` offer, each once.  It
determines `r` up to `==` and does not depend on the order of `ds` (`Schema.Meets.beq`).
`Schema.LeavesOnly Schema.IsPlain ds` is the condition under which a fold over `ds` computes that
(`foldlM_intersection`): no selection of two or more, but not all, of the schemas has a single
common shape that stands for other ones.
-/

namespace TypedSchema
namespace Schema

/-! ## Offered shapes -/

/-- The schema offers a shape, up to `==`. -/
def Offers (s x : Schema) : Prop := ∃ shapes, s.alternatives = .ok shapes ∧ shapes.contains x = true

/-- The schema is one shape and offers itself: it stands neither for alternatives, as an `anyOf` or
a list of types does, nor for something that is not at hand, as a reference does. -/
def IsPlain : Schema → Prop
  | .object _ => True
  | .array _ => True
  | .primitive _ => True
  | .multiType _ => False
  | .anyOf _ => False
  | .ref _ => False

lemma IsPlain.alternatives {s : Schema} (h : s.IsPlain) : s.alternatives = .ok [s] := by
  cases s with
  | object _ => rfl
  | array _ => rfl
  | primitive _ => rfl
  | multiType _ => exact h.elim
  | anyOf _ => exact h.elim
  | ref _ => exact h.elim

/-- The schema that stands for some shapes: a single one for itself, several as an `anyOf`. -/
def ofShapes : List Schema → Schema
  | [s] => s
  | shapes => .anyOf shapes

lemma alternatives_ofShapes {shapes : List Schema}
    (h : ∀ s, shapes = [s] → s.IsPlain) : (ofShapes shapes).alternatives = .ok shapes := by
  match shapes with
  | [] => rfl
  | [s] => exact (h s rfl).alternatives
  | _ :: _ :: _ => rfl

lemma ofShapes_beq {xs ys : List Schema}
    (h : Multiset.Rel (fun x y : Schema => (x == y) = true) (xs : Multiset Schema)
      (ys : Multiset Schema)) : (ofShapes xs == ofShapes ys) = true := by
  have hlength : xs.length = ys.length := Multiset.card_eq_card_of_rel h
  match xs, ys, hlength with
  | [], [], _ => exact BEq.rfl
  | [x], [y], _ =>
    rw [← Multiset.cons_coe, Multiset.rel_cons_left] at h
    obtain ⟨b, others, hxb, -, heq⟩ := h
    have hb : b ∈ ([y] : List Schema) := by
      rw [← Multiset.mem_coe, heq]
      exact Multiset.mem_cons_self b others
    rwa [List.mem_singleton.1 hb] at hxb
  | _ :: _ :: _, _ :: _ :: _, _ => exact anyOf_beq_iff.2 h

/-! ## Common shapes of two schemas -/

lemma contains_filter_contains (as bs : List Schema) (x : Schema) :
    (as.filter bs.contains).contains x = (as.contains x && bs.contains x) := by
  rw [Bool.eq_iff_iff, Bool.and_eq_true, List.contains_iff_exists_mem_beq,
    List.contains_iff_exists_mem_beq]
  constructor
  · rintro ⟨y, hy, hxy⟩
    obtain ⟨has, hbs⟩ := List.mem_filter.1 hy
    exact ⟨⟨y, has, hxy⟩, (List.contains_congr hxy).trans hbs⟩
  · rintro ⟨⟨y, hy, hxy⟩, hbs⟩
    have hybs : bs.contains y = true := (List.contains_congr hxy).symm.trans hbs
    exact ⟨y, List.mem_filter.2 ⟨hy, hybs⟩, hxy⟩

/-- The common shapes are those that are in both lists. -/
theorem contains_common (as bs : List Schema) (x : Schema) :
    (common as bs).contains x = (as.contains x && bs.contains x) := by
  rw [common, contains_firstOccurrences, contains_filter_contains]

theorem intersection_eq_ok {a b r : Schema} :
    a.intersection b = .ok r ↔ ∃ as bs, a.alternatives = .ok as ∧ b.alternatives = .ok bs ∧
      common as bs ≠ [] ∧ r = ofShapes (common as bs) := by
  simp only [intersection, intersect, bind_eq_ok, pure_eq_ok]
  constructor
  · rintro ⟨shapes, ⟨as, has, bs, hbs, rfl⟩, h⟩
    refine ⟨as, bs, has, hbs, ?_⟩
    cases hshapes : common as bs with
    | nil => rw [hshapes] at h; cases h
    | cons s rest =>
      rw [hshapes] at h
      refine ⟨List.cons_ne_nil s rest, ?_⟩
      cases rest <;> exact (Except.ok.inj h).symm
  · rintro ⟨as, bs, has, hbs, hne, rfl⟩
    refine ⟨_, ⟨as, has, bs, hbs, rfl⟩, ?_⟩
    obtain ⟨s, rest, hcommon⟩ := List.exists_cons_of_ne_nil hne
    rw [hcommon]
    cases rest <;> rfl

/-! ## Common shapes of several schemas -/

/-- The schema is made of the shapes that all of these offer, each once. -/
def Meets (ds : List Schema) (r : Schema) : Prop :=
  ∃ shapes, r = ofShapes shapes ∧ shapes ≠ [] ∧
    (shapes.Pairwise fun x y => (x == y) = false) ∧
    ∀ x, shapes.contains x = true ↔ ∀ d ∈ ds, d.Offers x

/-- What several schemas have in common is determined up to order, and does not depend on theirs. -/
theorem Meets.beq {ds es : List Schema} {r r' : Schema} (hds : ∀ d, d ∈ ds ↔ d ∈ es)
    (hr : Meets ds r) (hr' : Meets es r') : (r == r') = true := by
  obtain ⟨xs, rfl, -, hxs, hxmem⟩ := hr
  obtain ⟨ys, rfl, -, hys, hymem⟩ := hr'
  refine ofShapes_beq (rel_of_contains_iff hxs hys fun z => ?_)
  rw [hxmem, hymem]
  simp only [hds]

/-- Some shape is offered by all of these. -/
def HaveCommonShape (ds : List Schema) : Prop := ∃ x, ∀ d ∈ ds, d.Offers x

lemma Meets.haveCommonShape {ds : List Schema} {r : Schema} (h : Meets ds r) :
    HaveCommonShape ds := by
  obtain ⟨shapes, -, hne, -, hmem⟩ := h
  obtain ⟨x, rest, rfl⟩ := List.exists_cons_of_ne_nil hne
  exact ⟨x, (hmem x).1 (by simp)⟩

/-- One more intersection: a schema that offers what all of `ds` offer, intersected with another
one. -/
lemma intersection_step (ds : List Schema) {r e : Schema} {shapes : List Schema}
    (hshapes : r.alternatives = .ok shapes)
    (hmem : ∀ x, shapes.contains x = true ↔ ∀ d ∈ ds, d.Offers x) :
    (∀ r', r.intersection e = .ok r' → Meets (ds ++ [e]) r') ∧
      (HaveCommonShape (ds ++ [e]) → ∃ r', r.intersection e = .ok r') := by
  have hsplit : ∀ x, (∀ d ∈ ds ++ [e], d.Offers x) ↔ shapes.contains x = true ∧ e.Offers x := by
    intro x
    rw [hmem]
    simp only [List.mem_append, List.mem_singleton]
    constructor
    · exact fun h => ⟨fun d hd => h d (.inl hd), h e (.inr rfl)⟩
    · rintro ⟨hds, he⟩ d (hd | rfl)
      · exact hds d hd
      · exact he
  constructor
  · intro r' hr'
    obtain ⟨as, bs, has, hbs, hne, rfl⟩ := intersection_eq_ok.1 hr'
    obtain rfl : shapes = as := Except.ok.inj (hshapes.symm.trans has)
    refine ⟨_, rfl, hne, pairwise_firstOccurrences _, fun x => ?_⟩
    rw [contains_common, Bool.and_eq_true, hsplit]
    refine and_congr_right fun _ => ⟨fun h => ⟨bs, hbs, h⟩, ?_⟩
    rintro ⟨bs', hbs', h⟩
    rwa [Except.ok.inj (hbs.symm.trans hbs')]
  · rintro ⟨x, hx⟩
    obtain ⟨hxs, bs, hbs, hxb⟩ := (hsplit x).1 hx
    refine ⟨_, intersection_eq_ok.2 ⟨shapes, bs, hshapes, hbs, ?_, rfl⟩⟩
    intro hnil
    have hcontains : (common shapes bs).contains x = true := by
      rw [contains_common, hxs, hxb]
      rfl
    rw [hnil] at hcontains
    exact absurd hcontains Bool.false_ne_true

/-- The intersection of two schemas, which nothing can take apart. -/
lemma intersection_pair (d e : Schema) :
    (∀ r, d.intersection e = .ok r → Meets [d, e] r) ∧
      (HaveCommonShape [d, e] → ∃ r, d.intersection e = .ok r) := by
  cases hd : d.alternatives with
  | error fault =>
    constructor
    · intro r hr
      obtain ⟨as, bs, has, -⟩ := intersection_eq_ok.1 hr
      rw [hd] at has
      cases has
    · rintro ⟨x, hx⟩
      obtain ⟨as, has, -⟩ := hx d List.mem_cons_self
      rw [hd] at has
      cases has
  | ok shapes =>
    refine intersection_step [d] hd fun x => ?_
    simp only [List.mem_singleton, forall_eq]
    refine ⟨fun h => ⟨shapes, hd, h⟩, ?_⟩
    rintro ⟨shapes', hshapes', h⟩
    rwa [Except.ok.inj (hd.symm.trans hshapes')]

/-- A shape is the only one, up to `==`, that all of these offer. -/
def OnlyCommonShape (ds : List Schema) (x : Schema) : Prop :=
  (∀ d ∈ ds, d.Offers x) ∧ ∀ y, (∀ d ∈ ds, d.Offers y) → (y == x) = true

/-- Wherever two or more, but not all, of these have a single common shape, it is one of `p`, up to
`==`.  The order of `ds` plays no part, and for fewer than three schemas nothing is asked. -/
def LeavesOnly (p : Schema → Prop) (ds : List Schema) : Prop :=
  ∀ es, es.Subperm ds → 2 ≤ es.length → es.length < ds.length →
    ∀ x, OnlyCommonShape es x → ∃ y, p y ∧ (x == y) = true

lemma IsPlain.of_beq {x y : Schema} (hy : y.IsPlain) (h : (x == y) = true) : x.IsPlain := by
  cases y with
  | object _ => cases x with
    | object _ => trivial
    | _ => exact absurd h Bool.false_ne_true
  | array _ => cases x with
    | array _ => trivial
    | _ => exact absurd h Bool.false_ne_true
  | primitive _ => cases x with
    | primitive _ => trivial
    | _ => exact absurd h Bool.false_ne_true
  | multiType _ => exact hy.elim
  | anyOf _ => exact hy.elim
  | ref _ => exact hy.elim

/-- Schemas leave only what they offer. -/
lemma leavesOnly_of_alternatives {p : Schema → Prop} {ds : List Schema}
    (h : ∀ d ∈ ds, ∀ shapes, d.alternatives = .ok shapes → ∀ y ∈ shapes, p y) :
    LeavesOnly p ds := by
  intro es hes htwo _ x hx
  obtain ⟨d, rest, rfl⟩ := List.exists_cons_of_ne_nil
    (List.length_pos_iff.1 (Nat.zero_lt_two.trans_le htwo))
  obtain ⟨shapes, hshapes, hmem⟩ := hx.1 d List.mem_cons_self
  obtain ⟨y, hy, hxy⟩ := List.contains_iff_exists_mem_beq.1 hmem
  exact ⟨y, h d (hes.subset List.mem_cons_self) shapes hshapes y hy, hxy⟩

lemma LeavesOnly.imp {p q : Schema → Prop} {ds : List Schema} (h : LeavesOnly p ds)
    (hpq : ∀ x, p x → q x) : LeavesOnly q ds := by
  intro es hes htwo hlt x hx
  obtain ⟨y, hy, hxy⟩ := h es hes htwo hlt x hx
  exact ⟨y, hpq y hy, hxy⟩

lemma LeavesOnly.of_subperm {p : Schema → Prop} {ds es : List Schema} (h : LeavesOnly p ds)
    (hes : es.Subperm ds) : LeavesOnly p es := fun fs hfs htwo hlt =>
  h fs (hfs.trans hes) htwo (hlt.trans_le hes.length_le)

lemma LeavesOnly.perm {p : Schema → Prop} {ds es : List Schema} (h : LeavesOnly p ds)
    (hes : ds.Perm es) : LeavesOnly p es := h.of_subperm hes.symm.subperm

/-- Where only plain shapes are left, the result of intersecting some of the schemas offers exactly
what they all offer: it is not taken apart by the next intersection. -/
lemma Meets.alternatives {ds es : List Schema} {r : Schema} (hplain : LeavesOnly IsPlain ds)
    (hes : es.Subperm ds) (htwo : 2 ≤ es.length) (hlt : es.length < ds.length) (hr : Meets es r) :
    ∃ shapes, r.alternatives = .ok shapes ∧
      ∀ x, shapes.contains x = true ↔ ∀ d ∈ es, d.Offers x := by
  obtain ⟨shapes, rfl, -, -, hmem⟩ := hr
  refine ⟨shapes, alternatives_ofShapes fun s hs => ?_, hmem⟩
  subst hs
  obtain ⟨y, hy, hsy⟩ := hplain es hes htwo hlt s
    ⟨(hmem s).1 (by simp), fun y hy => by simpa using (hmem y).2 hy⟩
  exact hy.of_beq hsy

/-- **Folding the intersection collects the common shapes.**  Where only plain shapes are left, the
fold over two or more schemas succeeds exactly if they have a common shape, and then gives all of
them. -/
theorem foldlM_intersection {d : Schema} {ds : List Schema} (hne : ds ≠ [])
    (hplain : LeavesOnly IsPlain (d :: ds)) :
    ((∃ r, ds.foldlM intersection d = .ok r) ↔ HaveCommonShape (d :: ds)) ∧
      ∀ r, ds.foldlM intersection d = .ok r → Meets (d :: ds) r := by
  suffices h : (∀ r, ds.foldlM intersection d = .ok r → Meets (d :: ds) r) ∧
      (HaveCommonShape (d :: ds) → ∃ r, ds.foldlM intersection d = .ok r) from
    ⟨⟨fun ⟨r, hr⟩ => (h.1 r hr).haveCommonShape, h.2⟩, h.1⟩
  induction ds using List.reverseRecOn with
  | nil => exact absurd rfl hne
  | append_singleton before e ih =>
    rw [List.foldlM_append]
    simp only [List.foldlM_cons, List.foldlM_nil, bind_pure, bind_eq_ok]
    by_cases hbefore : before = []
    · subst hbefore
      simp only [List.foldlM_nil, pure_eq_ok, exists_eq_left']
      exact intersection_pair d e
    · have hsub : (d :: before).Subperm (d :: (before ++ [e])) :=
        (List.sublist_append_left (d :: before) [e]).subperm
      have htwo : 2 ≤ (d :: before).length := by
        have hpos := List.length_pos_iff.2 hbefore
        rw [List.length_cons]
        omega
      have hlt : (d :: before).length < (d :: (before ++ [e])).length := by simp
      obtain ⟨hmeets, hok⟩ := ih hbefore (hplain.of_subperm hsub)
      constructor
      · rintro r' ⟨r, hr, hr'⟩
        obtain ⟨shapes, hshapes, hmem⟩ := (hmeets r hr).alternatives hplain hsub htwo hlt
        exact (intersection_step _ hshapes hmem).1 r' hr'
      · intro hcommon
        have hprefix : HaveCommonShape (d :: before) := by
          obtain ⟨x, hx⟩ := hcommon
          exact ⟨x, fun c hc => hx c (List.mem_append_left [e] hc)⟩
        obtain ⟨r, hr⟩ := hok hprefix
        obtain ⟨shapes, hshapes, hmem⟩ := (hmeets r hr).alternatives hplain hsub htwo hlt
        obtain ⟨r', hr'⟩ := (intersection_step _ hshapes hmem).2 hcommon
        exact ⟨r', r, hr, hr'⟩

end Schema
end TypedSchema
